import SchemaGen.Failure

/-!
# Schema model

What a schema module is generated from: the top-level messages of a file with their fields.
-/

namespace SchemaGen

/-- The kind of a field: a scalar by its type code, or a reference to a message or an enum. -/
inductive FieldKind where
  | scalar (code : Int)
  | message (typeName : String)
  | enum (typeName : String)
  deriving Repr, DecidableEq

def FieldKind.require : Option FieldKind → Except Failure FieldKind
  | some kind => .ok kind
  | none => .error .missingKind

structure Flags where
  unique : Bool := false
  required : Bool := false
  indexed : Bool := false
  deriving Repr, DecidableEq, Inhabited

namespace Flags

def any (flags : Flags) : Bool := flags.unique || flags.required || flags.indexed

def keys (flags : Flags) : List String :=
  (if flags.unique then ["unique"] else []) ++ (if flags.required then ["required"] else []) ++
    if flags.indexed then ["index"] else []

end Flags

structure SchemaField where
  name : String
  number : Int
  kind : FieldKind
  repeated : Bool := false
  flags : Flags := {}
  deriving Repr, DecidableEq

structure SchemaMessage where
  name : String
  fullName : String
  collection : String
  fields : List SchemaField := []
  deriving Repr, DecidableEq

structure SchemaFile where
  name : String
  package : Option String := none
  dialect : String := "proto2"
  messages : List SchemaMessage := []
  deriving Repr, DecidableEq

def occursIn (part : List Char) : List Char → Bool
  | [] => part.isEmpty
  | c :: rest => part.isPrefixOf (c :: rest) || occursIn part rest

namespace SchemaFile

/-- Files that have this in their names declare options and are not generated from. -/
def skipMark : String := "options"

/-- A file without messages, or one that declares options, gives no module. -/
def isSkipped (file : SchemaFile) : Bool :=
  file.messages.isEmpty || occursIn skipMark.toList file.name.toList

def eligible (files : List SchemaFile) : List (SchemaFile × SchemaMessage) :=
  (files.filter (!·.isSkipped)).flatMap fun file => file.messages.map fun message => (file, message)

end SchemaFile

end SchemaGen
