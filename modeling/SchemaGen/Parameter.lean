import SchemaGen.OrderedMap
import SchemaGen.Text.Blank
import SchemaGen.Text.Lowercase

/-!
# Parameters

The parameter string of a request: entries separated by commas or semicolons, each a key with a
value after an equals sign or a bare word, which stands for `true`. Blanks around keys and values do
not count, keys are in lower case, and blank entries are passed over.
-/

namespace SchemaGen.Parameter

def isSeparator (c : Char) : Bool := c == ',' || c == ';'

def cutAtEquals? : List Char → Option (List Char × List Char)
  | [] => none
  | c :: rest =>
    if c = '=' then some ([], rest)
    else (cutAtEquals? rest).map fun cut => (c :: cut.1, cut.2)

def entry? (text : List Char) : Option (String × String) :=
  match Text.trimChars text with
  | [] => none
  | word =>
    match cutAtEquals? word with
    | some (key, value) =>
      some (String.ofList (Text.lowerChars (Text.trimChars key)),
        String.ofList (Text.trimChars value))
    | none => some (String.ofList (Text.lowerChars word), "true")

def entries (parameter : List Char) : List (String × String) :=
  (Text.pieces isSeparator parameter).filterMap entry?

def parse (parameter : String) : OrderedMap String :=
  OrderedMap.ofList (entries parameter.toList)

end SchemaGen.Parameter
