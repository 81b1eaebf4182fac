import SchemaGen.Decimal.Layout
import SchemaGen.Text.Shown
import SchemaGen.Wire.Schema

/-!
# Values of singular fields

What a field's record means, whether it counts as set to something, and its text.
-/

namespace SchemaGen.Wire

/-- The value of a singular field. Strings are kept as bytes, since an unchecked one may hold
anything, and real numbers as the bits of a double. -/
inductive Value where
  | bool (value : Bool)
  | integer (value : Int)
  | real (bits : UInt64)
  | string (content : Bytes)
  | bytes (content : Bytes)
  | message
  deriving Repr, DecidableEq

def unZigzag (n : Nat) : Int :=
  if n % 2 = 0 then ((n / 2 : Nat) : Int) else -(((n + 1) / 2 : Nat) : Int)

def Kind.value : Kind → Record → Value
  | .bool, .varint _ value => .bool (value != 0)
  | .int32, .varint _ value => .integer value.toUInt32.toInt32.toInt
  | .enum _, .varint _ value => .integer value.toUInt32.toInt32.toInt
  | .int64, .varint _ value => .integer value.toInt64.toInt
  | .uint32, .varint _ value => .integer value.toUInt32.toNat
  | .uint64, .varint _ value => .integer value.toNat
  | .sint32, .varint _ value => .integer (unZigzag value.toUInt32.toNat)
  | .sint64, .varint _ value => .integer (unZigzag value.toNat)
  | .double, .fixed64 _ bits => .real bits
  | .sfixed64, .fixed64 _ bits => .integer bits.toInt64.toInt
  | _, .fixed64 _ bits => .integer bits.toNat
  | .float, .fixed32 _ bits => .real (Decimal.widen bits)
  | .sfixed32, .fixed32 _ bits => .integer bits.toInt32.toInt
  | _, .fixed32 _ bits => .integer bits.toNat
  | .string _, .bytes _ content => .string content
  | .bytes, .bytes _ content => .bytes content
  | _, _ => .message

def FieldSpec.value? (field : FieldSpec) (records : List Record) : Option Value :=
  ((records.filter field.claims).getLast?).map field.kind.value

namespace Value

/-- Whether a value counts as on: numbers other than zero, texts and bytes that are not empty, and
every message. -/
def isOn : Value → Bool
  | bool value => value
  | integer value => value != 0
  | real bits => bits.toNat % Nat.pow 2 63 != 0
  | string content => !content.isEmpty
  | bytes content => !content.isEmpty
  | message => true

/-- The text of a value. A string that is no text is shown as bytes. How a message is written as a
text is left out. -/
def shown : Value → String
  | bool value => if value then "True" else "False"
  | integer value => toString value
  | real bits => Decimal.shown bits
  | string content => (text? content).getD (Text.Shown.bytes content)
  | bytes content => Text.Shown.bytes content
  | message => ""

end Value

end SchemaGen.Wire
