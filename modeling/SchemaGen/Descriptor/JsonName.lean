import SchemaGen.Descriptor.Basic

/-!
# Names in JSON

The name under which a field goes in JSON is given with the field or made from the field's name:
underscores fall away and the letter after one is raised. Within a message these names have to
differ. Where that is asked for, a name in JSON that is not the field's own name also has to differ
from the names of the oneofs and of the fields before it.
-/

namespace SchemaGen.Descriptor

/-- Drops underscores and raises the letter after them, the first one too if `raised`. -/
def camelChars : (raised : Bool) → List Char → List Char
  | _, [] => []
  | raised, c :: rest =>
    if c = '_' then camelChars true rest
    else (if raised then c.toUpper else c) :: camelChars false rest

def camelName (name : String) : String := String.ofList (camelChars false name.toList)

def Field.json (field : Field) : String := field.jsonName.getD (camelName field.nameText)

/-- Whether names in JSON clash, given the names of oneofs and earlier fields and the earlier names
in JSON. -/
def clashIn (distinct : Bool) : (names jsonNames : List String) → List Field → Bool
  | _, _, [] => false
  | names, jsonNames, field :: more =>
    let known := field.nameText :: names
    (distinct && field.json != field.nameText && known.contains field.json) ||
      jsonNames.contains field.json ||
      clashIn distinct known (field.json :: jsonNames) more

def Message.jsonClash (message : Message) (distinct : Bool) : Bool :=
  !message.allowsJsonClashes &&
    clashIn distinct (message.oneofs.map Oneof.nameText) [] message.fields

end SchemaGen.Descriptor
