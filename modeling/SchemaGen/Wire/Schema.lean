import SchemaGen.Wire.Record

/-!
# Schemas

What a message type makes of its records. A record belongs to a field when it bears the field's
number in the shape of the field's kind; every other record is kept as it came. Three questions are
answered here for a list of records under a type: whether they can be read (`readable`), what they
are once read and written again (`normal`), and whether they can be written at all (`complete`).
Messages inside messages nest at most to the given depth. The members of a message set come each in
a group of their own, beside the number of the field that they belong to.
-/

namespace SchemaGen.Wire

def text? (content : Bytes) : Option String := String.fromUTF8? content.toByteArray

def isText (content : Bytes) : Bool := (text? content).isSome

inductive Shape where
  | varint
  | fixed64
  | bytes
  | group
  | fixed32
  deriving Repr, DecidableEq

def Record.shape : Record → Shape
  | .varint .. => .varint
  | .fixed64 .. => .fixed64
  | .bytes .. => .bytes
  | .group .. => .group
  | .fixed32 .. => .fixed32

/-- What a field holds. A checked string has to be UTF-8. An enum lists its numbers when it is
closed. Messages and groups name their type. -/
inductive Kind where
  | double
  | float
  | int64
  | uint64
  | int32
  | fixed64
  | fixed32
  | bool
  | string (checked : Bool)
  | group (type : String)
  | message (type : String)
  | bytes
  | uint32
  | enum (closed : Option (List Int32))
  | sfixed32
  | sfixed64
  | sint32
  | sint64
  deriving Repr, DecidableEq

inductive Cardinality where
  | optional
  | required
  | repeated
  deriving Repr, DecidableEq

structure FieldSpec where
  number : Nat
  kind : Kind
  cardinality : Cardinality
  deriving Repr, DecidableEq

/-- The fields of each message type, by its full name, and which of the types are message sets. -/
structure Schema where
  types : List (String × List FieldSpec)
  sets : List String := []
  deriving Repr, DecidableEq

namespace Kind

def shape : Kind → Shape
  | double | fixed64 | sfixed64 => .fixed64
  | float | fixed32 | sfixed32 => .fixed32
  | string _ | message _ | bytes => .bytes
  | group _ => .group
  | _ => .varint

def messageType? : Kind → Option String
  | group type => some type
  | message type => some type
  | _ => none

/-- Whether a record of the right shape is a value: the number of a closed enum must be listed. -/
def admits : Kind → Record → Bool
  | enum (some numbers), .varint _ value => numbers.contains value.toUInt32.toInt32
  | _, _ => true

def accepts : Kind → Record → Bool
  | string true, .bytes _ content => isText content
  | _, _ => true

/-- A value of the kind as it is written: thirty-two-bit integers lose their high bits, signed ones
are then extended by sign, and a boolean is zero or one. -/
def canonical : Kind → Record → Record
  | bool, .varint number value => .varint number (if value = 0 then 0 else 1)
  | int32, .varint number value => .varint number value.toUInt32.toInt32.toInt64.toUInt64
  | enum _, .varint number value => .varint number value.toUInt32.toInt32.toInt64.toUInt64
  | uint32, .varint number value => .varint number value.toUInt32.toUInt64
  | sint32, .varint number value => .varint number value.toUInt32.toUInt64
  | _, record => record

/-- A record that the kind refuses as a value is kept with the bits that were looked at. -/
def keep : Kind → Record → Record
  | enum (some _), .varint number value => .varint number value.toUInt32.toUInt64
  | _, record => record

end Kind

def readVarints : (count : Nat) → Bytes → Option (List UInt64)
  | _, [] => some []
  | 0, _ :: _ => none
  | count + 1, b :: input => do
    let (value, rest) ← Varint.readValue (b :: input)
    let values ← readVarints count rest
    return value :: values

def readChunks (size : Nat) : (count : Nat) → Bytes → Option (List Bytes)
  | _, [] => some []
  | 0, _ :: _ => none
  | count + 1, b :: input => do
    let (chunk, rest) ← readChunk size (b :: input)
    let chunks ← readChunks size count rest
    return chunk :: chunks

namespace FieldSpec

def isRepeated (field : FieldSpec) : Bool := field.cardinality == .repeated

/-- The elements of a record under the field's number. A repeated field of numbers also takes them
packed together in a length-delimited record. -/
def unpack (field : FieldSpec) (record : Record) : Option (List Record) :=
  match record with
  | .bytes number content =>
    if field.isRepeated then
      match field.kind.shape with
      | .varint => (readVarints content.length content).map (·.map (.varint number ·))
      | .fixed64 =>
        (readChunks 8 content.length content).map
          (·.map fun chunk => .fixed64 number (.ofNat (ofLittleEndian chunk)))
      | .fixed32 =>
        (readChunks 4 content.length content).map
          (·.map fun chunk => .fixed32 number (.ofNat (ofLittleEndian chunk)))
      | _ => some [record]
    else some [record]
  | _ => some [record]

def claims (field : FieldSpec) (record : Record) : Bool :=
  record.number == field.number && record.shape == field.kind.shape && field.kind.admits record

def wrap (field : FieldSpec) (members : List Record) : Record :=
  match field.kind with
  | .group _ => .group field.number members
  | _ => .bytes field.number (Record.encodeAll members)

end FieldSpec

def FieldSpec.insertByNumber (field : FieldSpec) : List FieldSpec → List FieldSpec
  | [] => [field]
  | other :: rest =>
    if field.number ≤ other.number then field :: other :: rest
    else other :: field.insertByNumber rest

def Record.members? (depth : Nat) : Record → Option (List Record)
  | .bytes _ content => Record.readAll depth content
  | .group _ members => some members
  | _ => none

def Record.members (depth : Nat) (record : Record) : List Record :=
  (record.members? depth).getD []

/-- The submessages that the values of a field make up: one merged message unless repeated. -/
def FieldSpec.submessages (field : FieldSpec) (depth : Nat) (values : List Record) :
    List (List Record) :=
  if field.isRepeated then values.map (·.members depth)
  else if values.isEmpty then []
  else [values.flatMap (·.members depth)]

/-- A group that holds a member of a message set, as a record of the member under its number. The
first number and the first content in the group count. -/
def Record.ofSetItem : Record → Record
  | .group 1 members =>
    match (Record.varints 2 members).head?, (Record.contents 3 members).head? with
    | some number, some content => .bytes number.toUInt32.toNat content
    | _, _ => .group 1 members
  | record => record

namespace Schema

def fieldsOf (schema : Schema) (type : String) : List FieldSpec :=
  (schema.types.lookup type).getD []

def field? (schema : Schema) (type : String) (number : Nat) : Option FieldSpec :=
  (schema.fieldsOf type).find? (·.number == number)

def sortedFields (schema : Schema) (type : String) : List FieldSpec :=
  (schema.fieldsOf type).foldr FieldSpec.insertByNumber []

def unwrap (schema : Schema) (type : String) (records : List Record) : List Record :=
  if schema.sets.contains type then records.map Record.ofSetItem else records

/-- The records with packed payloads taken apart; `none` when one of those is cut short. -/
def unpack (schema : Schema) (type : String) (records : List Record) : Option (List Record) := do
  let parts ← (schema.unwrap type records).mapM fun record =>
    match schema.field? type record.number with
    | some field => field.unpack record
    | none => some [record]
  return parts.flatten

def elements (schema : Schema) (type : String) (records : List Record) : List Record :=
  (schema.unpack type records).getD records

/-- Whether every record that a field claims can be read, submessages included. -/
def readable (schema : Schema) : (depth : Nat) → (type : String) → List Record → Bool
  | 0, type, records =>
    match schema.unpack type records with
    | none => false
    | some elements =>
      (schema.fieldsOf type).all fun field =>
        (elements.filter field.claims).all fun value =>
          field.kind.messageType?.isNone && field.kind.accepts value
  | depth + 1, type, records =>
    match schema.unpack type records with
    | none => false
    | some elements =>
      (schema.fieldsOf type).all fun field =>
        (elements.filter field.claims).all fun value =>
          match field.kind.messageType? with
          | none => field.kind.accepts value
          | some inner =>
            match value.members? depth with
            | none => false
            | some members => schema.readable depth inner members

def hasRequired (schema : Schema) (type : String) (records : List Record) : Bool :=
  (schema.fieldsOf type).all fun field =>
    field.cardinality != .required || (schema.elements type records).any field.claims

/-- Whether a message can be written: no required field is missing, in the message or in one inside
it, and messages nest at most `depth` deep. -/
def complete (schema : Schema) : (depth : Nat) → (type : String) → List Record → Bool
  | 0, type, records =>
    schema.hasRequired type records &&
      (schema.fieldsOf type).all fun field =>
        field.kind.messageType?.isNone || !(schema.elements type records).any field.claims
  | depth + 1, type, records =>
    schema.hasRequired type records &&
      (schema.fieldsOf type).all fun field =>
        match field.kind.messageType? with
        | none => true
        | some inner =>
          (field.submessages depth ((schema.elements type records).filter field.claims)).all
            fun members => schema.complete depth inner members

def unclaimed (schema : Schema) (type : String) (records : List Record) : List Record :=
  (schema.elements type records).filterMap fun record =>
    match schema.field? type record.number with
    | none => some record
    | some field =>
      if field.claims record then none
      else if record.shape = field.kind.shape then some (field.kind.keep record)
      else some record

/-- The scalar values of a field as they are written: the last one, or all if repeated. -/
def scalars (field : FieldSpec) (values : List Record) : List Record :=
  let written := values.map field.kind.canonical
  if field.isRepeated then written else written.getLast?.toList

/-- The records of the message as it is written after reading: the fields by number, then what no
field claims. -/
def normal (schema : Schema) : (depth : Nat) → (type : String) → List Record → List Record
  | 0, type, records =>
    let elements := schema.elements type records
    ((schema.sortedFields type).flatMap fun field =>
      scalars field (elements.filter field.claims)) ++ schema.unclaimed type records
  | depth + 1, type, records =>
    let elements := schema.elements type records
    ((schema.sortedFields type).flatMap fun field =>
      let values := elements.filter field.claims
      match field.kind.messageType? with
      | none => scalars field values
      | some inner =>
        (field.submessages depth values).map fun members =>
          field.wrap (schema.normal depth inner members)) ++
      schema.unclaimed type records

/-- How deep messages and groups may nest below the outermost message that is read. -/
def maxDepth : Nat := 100

def maxWrittenDepth : Nat := 99

def decode? (schema : Schema) (type : String) (input : Bytes) : Option (List Record) := do
  let records ← Record.readAll maxDepth input
  if schema.readable maxDepth type records then some records else none

end Schema

end SchemaGen.Wire
