import SchemaGen.Text.Lowercase

/-!
# Names

Names derived from a message's name, and the form of references.
-/

namespace SchemaGen.Names

/-- A reference without its leading dot; only one is dropped. -/
def stripDot (reference : String) : String :=
  match reference.toList with
  | '.' :: rest => String.ofList rest
  | _ => reference

/-- The collection of a message that names none: its name in lower case with an `s`. -/
def defaultCollection (message : String) : String := Text.lower message ++ "s"

def collection (message : String) (override : Option String) : String :=
  match override with
  | none => defaultCollection message
  | some name => if name = "" then defaultCollection message else name

def exported (message : String) : String := message ++ "Schema"

def outputFile (message suffix : String) : String := Text.lower message ++ suffix

end SchemaGen.Names
