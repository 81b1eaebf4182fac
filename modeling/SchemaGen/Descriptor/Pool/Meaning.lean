import SchemaGen.Descriptor.Pool.Basic

/-!
# What fields mean

The type of a field comes to a scalar, a message type or an enum once its reference is looked up.
Together with the features that hold for the field this gives its part in the schema by which
messages are read. Taking in a file adds these parts for all its messages and extensions.
-/

namespace SchemaGen.Descriptor

inductive Meaning where
  | scalar (type : FieldType)
  | message (type : MessageType) (isGroup : Bool)
  | enum (type : EnumType)
  deriving Repr, DecidableEq

namespace Meaning

def isMessage : Meaning → Bool
  | message _ _ => true
  | _ => false

def kind (features : Features) : Meaning → Wire.Kind
  | message type isGroup => if isGroup then .group type.name else .message type.name
  | enum type => .enum type.closed
  | scalar .double => .double
  | scalar .float => .float
  | scalar .int64 => .int64
  | scalar .uint64 => .uint64
  | scalar .int32 => .int32
  | scalar .fixed64 => .fixed64
  | scalar .fixed32 => .fixed32
  | scalar .bool => .bool
  | scalar .string => .string features.checkedText
  | scalar .uint32 => .uint32
  | scalar .sfixed32 => .sfixed32
  | scalar .sfixed64 => .sfixed64
  | scalar .sint32 => .sint32
  | scalar .sint64 => .sint64
  | scalar _ => .bytes

end Meaning

/-- The label of a field. The features can require a field that is labelled optional. -/
def Field.effectiveLabel (field : Field) (features : Features) : Label :=
  if field.labelValue = .optional ∧ features.presence = .required then .required
  else field.labelValue

def cardinality : Label → Wire.Cardinality
  | .optional => .optional
  | .required => .required
  | .repeated => .repeated

def Message.form (message : Message) : Form :=
  if message.isMapEntry then .mapEntry
  else if message.isMessageSet then .messageSet
  else .plain

def Message.numberRanges (message : Message) : List NumberRange :=
  message.ranges.map fun range => ⟨(range.start.getD 0).toInt, (range.stop.getD 0).toInt⟩

namespace Pool

/-- A message inside another one is written as a group where the features say so, maps and their
entries apart. -/
def plainMessage (features : Features) (owner : Form) (type : MessageType) : Meaning :=
  .message type (features.groupedMessages && owner != .mapEntry && type.form != .mapEntry)

/-- What a field in a scope means, in a message of the given form. A reference goes with the
message, group and enum types only, and may stand without a type. -/
def meaning? (pool : Pool) (scope : String) (features : Features) (owner : Form) (field : Field) :
    Option Meaning :=
  match field.type, field.typeName with
  | some .message, some reference =>
    (pool.resolveMessage? scope reference).map (plainMessage features owner)
  | some .group, some reference => (pool.resolveMessage? scope reference).map (.message · true)
  | some .enum, some reference => (pool.resolveEnum? scope reference).map .enum
  | some .message, none => none
  | some .group, none => none
  | some .enum, none => none
  | some type, none => some (.scalar type)
  | some _, some _ => none
  | none, some reference =>
    match pool.resolveMessage? scope reference with
    | some type => some (plainMessage features owner type)
    | none => (pool.resolveEnum? scope reference).map .enum
  | none, none => some (.scalar .double)

def specOf (features : Features) (field : Field) (meaning : Meaning) : Wire.FieldSpec :=
  ⟨field.numberValue.toInt.toNat, meaning.kind features,
    cardinality (field.effectiveLabel features)⟩

def fieldMeaning? (pool : Pool) (context : Context) (message : Message) (field : Field) :
    Option Meaning :=
  pool.meaning? context.scope (context.ofField message.oneofs field) message.form field

def fieldSpec? (pool : Pool) (context : Context) (message : Message) (field : Field) :
    Option Wire.FieldSpec :=
  (pool.fieldMeaning? context message field).map
    (specOf (context.ofField message.oneofs field) field)

def extensionMeaning? (pool : Pool) (context : Context) (field : Field) : Option Meaning :=
  pool.meaning? context.scope (context.ofField [] field) .plain field

def extended? (pool : Pool) (context : Context) (field : Field) : Option MessageType := do
  pool.resolveMessage? context.scope (← field.extendee)

def extensionOf? (pool : Pool) (context : Context) (field : Field) : Option Extension := do
  let extended ← pool.extended? context field
  let meaning ← pool.extensionMeaning? context field
  return ⟨qualify context.scope field.nameText, extended.name,
    specOf (context.ofField [] field) field meaning⟩

-- ---------------------------------------------------------------------------
-- Taking in a file
-- ---------------------------------------------------------------------------

def enumType (context : Context) (enum : Enum) : EnumType :=
  ⟨qualify context.scope enum.nameText,
    enum.values.map fun value => (value.nameText, value.numberValue),
    (context.ofEnum enum).closedEnums⟩

/-- The pool with the names of a file, its enums, and its message types still without fields. -/
def declare (pool : Pool) (dialect : Dialect) (file : File) : Pool :=
  { pool with
    symbols := pool.symbols ++ file.declaredNames
    messages := pool.messages ++ (file.placedMessages dialect).map fun (context, message) =>
      ⟨context.scope, [], message.numberRanges, message.form⟩
    enums := pool.enums ++ (file.placedEnums dialect).map fun (context, enum) =>
      enumType context enum }

def enter (pool : Pool) (dialect : Dialect) (file : File) : Pool :=
  let declared := pool.declare dialect file
  { files := pool.files ++ [file.nameText]
    symbols := declared.symbols
    outermost := pool.outermost ++ file.messages.map fun message =>
      qualify file.packageText message.nameText
    messages := pool.messages ++ (file.placedMessages dialect).map fun (context, message) =>
      ⟨context.scope, message.fields.filterMap (declared.fieldSpec? context message),
        message.numberRanges, message.form⟩
    enums := declared.enums
    extensions := pool.extensions ++ (file.placedExtensions dialect).filterMap
      fun (context, field) => declared.extensionOf? context field }

end Pool

end SchemaGen.Descriptor
