import SchemaGen.Descriptor.Basic
import SchemaGen.Text.Escape

/-!
# Default values

The value that an unset field has is declared as text. Which texts are values depends on the type of
the field; messages and groups have none.
-/

namespace SchemaGen.Descriptor

/-- The characters of a number. A text of sixty-three bytes is too long for one, and a null ends it
early. -/
def numberChars? (text : String) : Option (List Char) :=
  if text.utf8ByteSize < 63 then some (text.toList.takeWhile (· != '\x00')) else none

/-- Whether a text is a number that passes a test. Nothing at all counts as one. -/
def isNumber {α : Type} (ofChars? : List Char → Option α) (fits : α → Bool) (text : String) :
    Bool :=
  match numberChars? text with
  | none => false
  | some [] => true
  | some chars => (ofChars? chars).any fits

def isWhole (fits : Decimal.Whole → Bool) : String → Bool := isNumber Decimal.Whole.ofChars? fits

def isReal (format : Decimal.Format) : String → Bool :=
  isNumber Decimal.Real.ofChars? format.holds

def FieldType.hasValue (type : FieldType) (text : String) : Bool :=
  match type with
  | double => isReal .double text
  | float => isReal .single text
  | int32 | sint32 | sfixed32 => isWhole (·.fitsSigned 32) text
  | int64 | sint64 | sfixed64 => isWhole (·.fitsSigned 64) text
  | uint32 | fixed32 => isWhole (·.fitsUnsigned 32) text
  | uint64 | fixed64 => isWhole (·.fitsUnsigned 64) text
  | bool => text == "true" || text == "false"
  | string => true
  | bytes => Text.isWellEscaped text.toList
  | group | message | enum => false

end SchemaGen.Descriptor
