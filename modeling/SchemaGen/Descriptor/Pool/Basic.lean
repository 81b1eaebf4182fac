import SchemaGen.Descriptor.Features
import SchemaGen.Text.Blank

/-!
# Declarations and references

A pool collects the message types, enums and extensions that files declare, under their full names.
A reference between declarations is a full name after a leading dot, or a name that is looked up in
the scope of the reference and in the scopes around it.
-/

namespace SchemaGen.Descriptor

structure NumberRange where
  start : Int
  stop : Int
  deriving Repr, DecidableEq

def NumberRange.contains (range : NumberRange) (number : Int) : Bool :=
  range.start ≤ number && number < range.stop

inductive Form where
  | plain
  | mapEntry
  | messageSet
  deriving Repr, DecidableEq

structure MessageType where
  name : String
  fields : List Wire.FieldSpec
  ranges : List NumberRange
  form : Form := .plain
  deriving Repr, DecidableEq

structure EnumType where
  name : String
  values : List (String × Int32)
  isClosed : Bool
  deriving Repr, DecidableEq

namespace EnumType

def numbers (enum : EnumType) : List Int32 := enum.values.map (·.2)

def closed (enum : EnumType) : Option (List Int32) :=
  if enum.isClosed then some enum.numbers else none

end EnumType

structure Extension where
  name : String
  extendee : String
  field : Wire.FieldSpec
  deriving Repr, DecidableEq

/-- Declarations of all files added so far. `symbols` holds the full names, `outermost` those of the
messages that stand inside no other. -/
structure Pool where
  files : List String
  symbols : List String
  outermost : List String
  messages : List MessageType
  enums : List EnumType
  extensions : List Extension
  deriving Repr, DecidableEq

-- ---------------------------------------------------------------------------
-- Names
-- ---------------------------------------------------------------------------

def isLetter (c : Char) : Bool :=
  ('a' ≤ c && c ≤ 'z') || ('A' ≤ c && c ≤ 'Z') || c == '_'

def isLetterOrDigit (c : Char) : Bool := isLetter c || ('0' ≤ c && c ≤ '9')

def isIdentifierChars : List Char → Bool
  | [] => false
  | c :: rest => isLetter c && rest.all isLetterOrDigit

def isIdentifier (name : String) : Bool := isIdentifierChars name.toList

/-- Identifiers with dots between them, and perhaps one more dot at the end. `atStart` tells that
the next character starts an identifier. -/
def isPackageChars : (atStart : Bool) → List Char → Bool
  | _, [] => true
  | true, c :: rest => isLetter c && isPackageChars false rest
  | false, c :: rest => (c == '.' || isLetterOrDigit c) && isPackageChars (c == '.') rest

def isPackageName (name : String) : Bool := isPackageChars true name.toList

/-- A scope and the scopes around it, the innermost first and the empty one last. -/
def scopesFrom (scope : String) : List String :=
  let names := Text.pieces (· == '.') scope.toList
  ((List.range (names.length + 1)).reverse.map fun count =>
    String.ofList (['.'].intercalate (names.take count)))

namespace File

def declaredNames (file : File) : List String :=
  file.allMessages.map (fun located => file.scopeOf located.path) ++
    file.scopedEnums.flatMap (fun (scope, enum) =>
      qualify scope enum.nameText :: enum.values.map fun value => qualify scope value.nameText) ++
    file.scopedExtensions.map (fun (scope, field) => qualify scope field.nameText) ++
    file.services.map fun service => qualify file.packageText service.nameText

def plainNames (file : File) : List String :=
  file.allMessages.flatMap (fun located =>
    located.message.nameText :: located.message.fields.map Field.nameText ++
      located.message.oneofs.map Oneof.nameText) ++
    file.scopedEnums.flatMap (fun (_, enum) =>
      enum.nameText :: enum.values.map EnumValue.nameText) ++
    file.scopedExtensions.map (fun (_, field) => field.nameText) ++
    file.services.flatMap fun service =>
      service.nameText :: service.methods.map Method.nameText

end File

-- ---------------------------------------------------------------------------
-- Looking up
-- ---------------------------------------------------------------------------

namespace Pool

def empty : Pool := ⟨[], [], [], [], [], []⟩

def message? (pool : Pool) (name : String) : Option MessageType :=
  pool.messages.find? (·.name == name)

def enum? (pool : Pool) (name : String) : Option EnumType := pool.enums.find? (·.name == name)

def extension? (pool : Pool) (name : String) : Option Extension :=
  pool.extensions.find? (·.name == name)

/-- The full name that a reference means. With a leading dot it is a full name itself; otherwise it
is looked up in the scope of the reference and in the scopes around that. -/
def resolve? (pool : Pool) (scope reference : String) : Option String :=
  match reference.toList with
  | [] => none
  | '.' :: name => pool.symbols.find? (· == String.ofList name)
  | _ => ((scopesFrom scope).map (qualify · reference)).find? pool.symbols.contains

def resolveMessage? (pool : Pool) (scope reference : String) : Option MessageType := do
  pool.message? (← pool.resolve? scope reference)

def resolveEnum? (pool : Pool) (scope reference : String) : Option EnumType := do
  pool.enum? (← pool.resolve? scope reference)

end Pool

end SchemaGen.Descriptor
