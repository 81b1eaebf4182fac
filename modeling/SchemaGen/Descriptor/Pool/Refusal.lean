import SchemaGen.Descriptor.DefaultText
import SchemaGen.Descriptor.JsonName
import SchemaGen.Descriptor.Pool.Meaning

/-!
# Refused declarations

Why a pool refuses a file. The rules are checked against the pool that has taken in the file, so
that declarations may refer to each other in any order.
-/

namespace SchemaGen.Descriptor

inductive Refusal where
  | missingDependency (file : String)
  | faultyDependencyIndex
  | unknownDialect (name : String)
  | misplacedFeatures
  | malformedName (name : String)
  | duplicateName (name : String)
  | faultyEnum (name : String)
  | faultyRange (message : String)
  | faultyOneof (message : String)
  | faultyField (name : String)
  | duplicateField (message : String)
  | jsonClash (message : String)
  | faultyForm (message : String)
  | faultyExtension (name : String)
  | duplicateExtension (message : String)
  | faultyService (name : String)
  deriving Repr, DecidableEq

def firstRepeated? {α : Type} [BEq α] : List α → Option α
  | [] => none
  | a :: rest => if rest.contains a then some a else firstRepeated? rest

def maxFieldNumber : Int := 536870911

def isFieldNumber (number : Int) : Bool := 1 ≤ number && number ≤ maxFieldNumber

def ReservedRange.numberRange (range : ReservedRange) : NumberRange :=
  ⟨(range.start.getD 0).toInt, (range.stop.getD 0).toInt⟩

namespace Pool

-- ---------------------------------------------------------------------------
-- Fields and extensions alike
-- ---------------------------------------------------------------------------

def labelIsSound (dialect : Dialect) (field : Field) : Bool :=
  field.labelValue != .required || dialect != .proto3

/-- A default value goes with fields whose presence is told, and has to be a value of the type. -/
def defaultIsSound (features : Features) (meaning : Meaning) (field : Field) : Bool :=
  match field.defaultText with
  | none => true
  | some text =>
    features.presence != .implicit &&
      match meaning with
      | .scalar type => type.hasValue text
      | .enum type => type.values.any (·.1 == text)
      | .message _ _ => false

-- ---------------------------------------------------------------------------
-- Fields
-- ---------------------------------------------------------------------------

/-- A field that goes into a oneof is optional, and the oneof is there. One that asks to be told
apart when unset goes into a oneof. -/
def oneofIsSound (features : Features) (message : Message) (field : Field) : Bool :=
  match field.oneofIndex with
  | none => field.isTracked != some true
  | some index =>
    0 ≤ index.toInt && index.toInt < message.oneofs.length &&
      field.effectiveLabel features == .optional

/-- Map entries are not written as groups, and do not stand inside each other. -/
def submessageIsSound (owner : Form) : Meaning → Bool
  | .message type isGroup => type.form != .mapEntry || (!isGroup && owner != .mapEntry)
  | _ => true

def startsAtZero (features : Features) (field : Field) : Bool :=
  field.labelValue != .repeated && field.oneofIndex.isNone && features.presence == .implicit

/-- An enum starts with zero where an unset field reads as zero. As the value of a map, a closed one
has zero among its values. -/
def zeroIsSound (features : Features) (message : Message) (field : Field) : Meaning → Bool
  | .enum type =>
    (!startsAtZero features field || type.numbers.head? == some 0) &&
      (!message.isMapEntry || !type.isClosed || type.numbers.contains 0)
  | _ => true

def fieldIsSound (pool : Pool) (context : Context) (message : Message) (field : Field) : Bool :=
  let features := context.ofField message.oneofs field
  isFieldNumber field.numberValue.toInt && labelIsSound context.dialect field &&
    oneofIsSound features message field &&
    (pool.fieldMeaning? context message field).any fun meaning =>
      defaultIsSound features meaning field && submessageIsSound message.form meaning &&
        zeroIsSound features message field meaning

-- ---------------------------------------------------------------------------
-- Oneofs
-- ---------------------------------------------------------------------------

def membersAt (message : Message) (index : Nat) : List Field :=
  message.fields.filter fun field => field.oneofIndex.any (·.toInt == (index : Int))

/-- Whether a oneof is there only to tell whether its field is set. -/
def isSynthetic (message : Message) (index : Nat) : Bool :=
  (membersAt message index).any (·.isTracked == some true)

/-- Real oneofs have fields and come before the synthetic ones, which have one field each. Only
plain messages need fields in all of theirs. -/
def oneofsAreSound (message : Message) : Bool :=
  let indexes := List.range message.oneofs.length
  let real := indexes.takeWhile (!isSynthetic message ·)
  let synthetic := indexes.dropWhile (!isSynthetic message ·)
  synthetic.all (fun index => isSynthetic message index && (membersAt message index).length == 1) &&
    (message.form != .plain || real.all fun index => !(membersAt message index).isEmpty)

-- ---------------------------------------------------------------------------
-- Messages
-- ---------------------------------------------------------------------------

def rangeLimit (message : Message) : Int :=
  if message.isMessageSet then 2147483647 else maxFieldNumber + 1

def rangeIsSound (limit : Int) (range : NumberRange) : Bool :=
  1 ≤ range.start && range.start < range.stop && range.stop ≤ limit

def isKeyType : FieldType → Bool
  | .double | .float | .bytes => false
  | _ => true

def keyIsSound : Meaning → Bool
  | .scalar type => isKeyType type
  | _ => false

def valueIsSound : Meaning → Bool
  | .message _ isGroup => !isGroup
  | _ => true

def entryIsSound (pool : Pool) (context : Context) (message : Message) : Bool :=
  match message.fields with
  | [key, value] =>
    key.labelValue != .repeated && value.labelValue != .repeated &&
      (pool.fieldMeaning? context message key).any keyIsSound &&
      (pool.fieldMeaning? context message value).any valueIsSound
  | _ => false

def maxRequired : Nat := 64

/-- A message set has no fields, a map entry a key and a value, and a plain message does not require
too many of its fields. -/
def formIsSound (pool : Pool) (context : Context) (message : Message) : Bool :=
  (!message.isMessageSet || message.fields.isEmpty) &&
    match message.form with
    | .mapEntry => pool.entryIsSound context message
    | .messageSet => true
    | .plain =>
      (message.fields.countP fun field =>
        field.effectiveLabel (context.ofField message.oneofs field) == .required) ≤ maxRequired

def messageRefusal? (pool : Pool) (context : Context) (message : Message) : Option Refusal :=
  let names := message.oneofs.map Oneof.nameText ++ message.fields.map Field.nameText
  if !(message.numberRanges.all (rangeIsSound (rangeLimit message)) &&
      message.reserved.all fun range =>
        rangeIsSound (maxFieldNumber + 1) range.numberRange) then
    some (.faultyRange context.scope)
  else if !oneofsAreSound message then some (.faultyOneof context.scope)
  else
    match message.fields.find? (!pool.fieldIsSound context message ·) with
    | some field => some (.faultyField (qualify context.scope field.nameText))
    | none =>
      if (firstRepeated? names).isSome ||
          (firstRepeated? (message.fields.map Field.numberValue)).isSome then
        some (.duplicateField context.scope)
      else if message.jsonClash context.features.distinctJson then
        some (.jsonClash context.scope)
      else if !pool.formIsSound context message then some (.faultyForm context.scope)
      else none

-- ---------------------------------------------------------------------------
-- Enums
-- ---------------------------------------------------------------------------

/-- An enum has a value, and an open one starts at zero. The ranges that it reserves include both of
their ends. -/
def enumIsSound (context : Context) (enum : Enum) : Bool :=
  (match enum.values with
    | [] => false
    | first :: _ => (context.ofEnum enum).closedEnums || first.numberValue == 0) &&
    enum.reserved.all fun range => (range.start.getD 0).toInt ≤ (range.stop.getD 0).toInt

-- ---------------------------------------------------------------------------
-- Extensions
-- ---------------------------------------------------------------------------

/-- The number of an extension is one of those left to extensions, and no field has it. The members
of a message set are single messages, and a map entry takes none. -/
def fitsExtended (extended : MessageType) (meaning : Meaning) (field : Field) : Bool :=
  extended.ranges.any (·.contains field.numberValue.toInt) &&
    !extended.fields.any (fun own => (own.number : Int) == field.numberValue.toInt) &&
    match extended.form with
    | .plain => true
    | .messageSet => meaning.isMessage && field.labelValue != .repeated
    | .mapEntry => false

def extensionIsSound (pool : Pool) (context : Context) (field : Field) : Bool :=
  let features := context.ofField [] field
  labelIsSound context.dialect field && field.oneofIndex.isNone &&
    (pool.extended? context field).any fun extended =>
      (pool.extensionMeaning? context field).any fun meaning =>
        defaultIsSound features meaning field && fitsExtended extended meaning field

/-- Every extension is sound, and no two of one message type share a number. -/
def extensionRefusal? (pool : Pool) (dialect : Dialect) (file : File) : Option Refusal :=
  match (file.placedExtensions dialect).find? fun (context, field) =>
      !pool.extensionIsSound context field with
  | some (context, field) => some (.faultyExtension (qualify context.scope field.nameText))
  | none =>
    (firstRepeated? (pool.extensions.map fun extension =>
      (extension.extendee, extension.field.number))).map fun entry => .duplicateExtension entry.1

-- ---------------------------------------------------------------------------
-- Services
-- ---------------------------------------------------------------------------

def methodIsSound (pool : Pool) (service : String) (method : Method) : Bool :=
  let scope := qualify service method.nameText
  (pool.resolveMessage? scope (method.input.getD "")).isSome &&
    (pool.resolveMessage? scope (method.output.getD "")).isSome

def serviceIsSound (pool : Pool) (package : String) (service : Service) : Bool :=
  (firstRepeated? (service.methods.map Method.nameText)).isNone &&
    service.methods.all (pool.methodIsSound (qualify package service.nameText))

-- ---------------------------------------------------------------------------
-- Files
-- ---------------------------------------------------------------------------

def indexesAreSound (file : File) : Bool :=
  (file.publicIndexes ++ file.weakIndexes).all fun index =>
    0 ≤ index.toInt && index.toInt < file.dependencies.length

/-- The name of a file holds no null, its package is a package name, the names in it are
identifiers, and none is declared twice. -/
def nameRefusal? (pool : Pool) (file : File) : Option Refusal :=
  if file.nameText.toList.contains '\x00' then some (.malformedName file.nameText)
  else if file.packageText ≠ "" ∧ !isPackageName file.packageText then
    some (.malformedName file.packageText)
  else
    ((file.plainNames.find? (!isIdentifier ·)).map Refusal.malformedName).or
      ((firstRepeated? pool.symbols).map Refusal.duplicateName)

def refusal? (pool : Pool) (dialect : Dialect) (file : File) : Option Refusal :=
  if !indexesAreSound file then some .faultyDependencyIndex
  else if dialect ≠ .editions ∧ file.setsFeatures then some .misplacedFeatures
  else
    (pool.nameRefusal? file).or <|
    (((file.placedEnums dialect).find? fun (context, enum) => !enumIsSound context enum).map
      fun (context, enum) => Refusal.faultyEnum (qualify context.scope enum.nameText)).or <|
    ((file.placedMessages dialect).findSome? fun (context, message) =>
      pool.messageRefusal? context message).or <|
    (pool.extensionRefusal? dialect file).or <|
    (file.services.find? (!pool.serviceIsSound file.packageText ·)).map fun service =>
      .faultyService (qualify file.packageText service.nameText)

end Pool

end SchemaGen.Descriptor
