import SchemaGen.SchemaFile
import SchemaGen.Names

/-!
# Target types

The field types of a generated schema and the kinds that map to them.
-/

namespace SchemaGen

inductive TargetType where
  | string
  | number
  | boolean
  | buffer
  | date
  | mixed
  deriving Repr, DecidableEq

namespace TargetType

def numericCodes : List Int := [1, 2, 3, 4, 5, 6, 7, 13, 15, 16, 17, 18]

/-- The type of a scalar; a code outside the table is taken for a string. -/
def ofScalar (code : Int) : TargetType :=
  if numericCodes.contains code then number
  else if code = 8 then boolean
  else if code = 12 then buffer
  else string

def timestamp : String := "google.protobuf.Timestamp"

/-- The type of a kind. Enums are stored by name; of the messages only the timestamp has a type of
its own. -/
def ofKind : FieldKind → TargetType
  | .scalar code => ofScalar code
  | .message typeName => if Names.stripDot typeName = timestamp then date else mixed
  | .enum _ => string

def name : TargetType → String
  | string => "String"
  | number => "Number"
  | boolean => "Boolean"
  | buffer => "BinaryBuffer"
  | date => "Date"
  | mixed => "MixedOrOpaque"

def expression : TargetType → String
  | string => "String"
  | number => "Number"
  | boolean => "Boolean"
  | buffer => "Buffer"
  | date => "Date"
  | mixed => "Schema.Types.Mixed"

end TargetType

namespace SchemaField

def target (field : SchemaField) : TargetType := TargetType.ofKind field.kind

def typeExpression (field : SchemaField) : String :=
  if field.repeated then "[" ++ field.target.expression ++ "]" else field.target.expression

end SchemaField

end SchemaGen
