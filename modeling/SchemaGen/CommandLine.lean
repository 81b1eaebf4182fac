import SchemaGen.Bundle
import SchemaGen.Text.Digit

/-!
# Command line

The arguments of the command that generates from a descriptor set. Every argument is first told
apart as an option or a plain one; they are then taken from left to right. Options may be shortened
as long as they stay unambiguous, and their values may follow an equals sign. Two dashes never count
as a value.
-/

namespace SchemaGen.CommandLine

inductive Flag where
  | help
  | proto
  | out
  | target
  deriving Repr, DecidableEq

namespace Flag

def all : List Flag := [help, proto, out, target]

def long : Flag → String
  | help => "--help"
  | proto => "--proto"
  | out => "--out"
  | target => "--target"

def label : Flag → String
  | help => "-h/--help"
  | flag => flag.long

end Flag

/-- An argument told apart: a plain one, the two dashes that end the options, an option with the
value that came in the same argument, or an option that is not known. -/
inductive Argument where
  | plain (text : String)
  | dashes
  | flag (flag : Flag) (value : Option String)
  | unknown (text : String)
  deriving Repr, DecidableEq

/-- What an option is set to: a text, or nothing when two dashes stand in its place. -/
inductive Value where
  | text (content : String)
  | nothing
  deriving Repr, DecidableEq

namespace Value

def ofText (content : String) : Value := if content = "--" then nothing else text content

def text? : Value → Option String
  | text content => some content
  | nothing => none

/-- The language that a value names. Nothing is written as an empty list, which names none. -/
def language : Value → String
  | text content => content
  | nothing => "[]"

end Value

structure Settings where
  bundle : String
  protos : List Value
  out : Value
  target : Value
  deriving Repr, DecidableEq

inductive Complaint where
  | ambiguous (text : String) (candidates : List Flag)
  | missingValue (flag : Flag)
  | ignoredValue (flag : Flag) (value : String)
  | invalidTarget (value : String)
  | missing (names : List String)
  | unrecognized (texts : List String)
  deriving Repr, DecidableEq

def Complaint.message : Complaint → String
  | ambiguous text candidates =>
    "ambiguous option: " ++ text ++ " could match " ++ ", ".intercalate (candidates.map Flag.long)
  | missingValue flag => "argument " ++ flag.label ++ ": expected one argument"
  | ignoredValue flag value =>
    "argument " ++ flag.label ++ ": ignored explicit argument " ++ Text.Shown.text value
  | invalidTarget value =>
    "argument --target: invalid choice: " ++ Text.Shown.text value ++ " (choose from 'ts', 'js')"
  | missing names => "the following arguments are required: " ++ ", ".intercalate names
  | unrecognized texts => "unrecognized arguments: " ++ " ".intercalate texts

-- ---------------------------------------------------------------------------
-- Telling arguments apart
-- ---------------------------------------------------------------------------

def cutAtEquals (text : List Char) : List Char × Option String :=
  match Parameter.cutAtEquals? text with
  | some (name, value) => (name, some (String.ofList value))
  | none => (text, none)

def isDigits (text : List Char) : Bool := !text.isEmpty && text.all Text.isDecimalDigit

def dropLineEnd (text : List Char) : List Char :=
  if text.getLast? = some '\n' then text.dropLast else text

/-- Negative numbers: a dash and digits, perhaps with a point among or before them. A line break
may follow. -/
def isNegativeNumber : List Char → Bool
  | '-' :: rest =>
    isDigits (dropLineEnd rest) ||
      match Text.pieces (· == '.') (dropLineEnd rest) with
      | [whole, fraction] => whole.all Text.isDecimalDigit && isDigits fraction
      | _ => false
  | _ => false

def longOption (text : String) : Except Complaint Argument :=
  let (name, value) := cutAtEquals text.toList
  match Flag.all.find? fun flag => flag.long.toList == text.toList with
  | some flag => .ok (.flag flag none)
  | none =>
    match Flag.all.filter fun flag => name.isPrefixOf flag.long.toList with
    | [flag] => .ok (.flag flag value)
    | [] => .ok (if text.toList.contains ' ' then .plain text else .unknown text)
    | candidates => .error (.ambiguous text candidates)

def leftOver? (letters : List Char) : Option (List Char) :=
  match letters.dropWhile (· == 'h') with
  | [] => none
  | rest => some rest

/-- The value that what follows the short form of help gives to it, which takes none. An equals sign
comes before a value, and the letter of help may be repeated. -/
def helpValue? : List Char → Option (List Char)
  | ['='] => some []
  | '=' :: value => leftOver? value
  | value => leftOver? value

def shortOption (text : String) : Argument :=
  match text.toList with
  | '-' :: 'h' :: rest => .flag .help ((helpValue? rest).map String.ofList)
  | chars =>
    if isNegativeNumber chars || chars.contains ' ' then .plain text else .unknown text

def classify (text : String) : Except Complaint Argument :=
  match text.toList with
  | '-' :: '-' :: _ => longOption text
  | ['-'] => .ok (.plain text)
  | '-' :: _ => .ok (shortOption text)
  | _ => .ok (.plain text)

/-- Tells all arguments apart. After two dashes alone every argument is plain. -/
def classifyAll : List String → Except Complaint (List Argument)
  | [] => .ok []
  | text :: rest =>
    if text = "--" then .ok (.dashes :: rest.map Argument.plain)
    else do
      let argument ← classify text
      return argument :: (← classifyAll rest)

-- ---------------------------------------------------------------------------
-- Taking arguments
-- ---------------------------------------------------------------------------

structure Taken where
  bundle : Option String := none
  protos : List Value := []
  out : Option Value := none
  target : Value := .text "ts"
  extras : List String := []
  deriving Repr

inductive Parsed where
  | help
  | settings (settings : Settings)
  deriving Repr, DecidableEq

def Taken.set (taken : Taken) : Flag → String → Except Complaint Taken
  | .proto, value => .ok { taken with protos := taken.protos ++ [.ofText value] }
  | .out, value => .ok { taken with out := some (.ofText value) }
  | .target, value =>
    if value = "ts" ∨ value = "js" ∨ value = "--" then .ok { taken with target := .ofText value }
    else .error (.invalidTarget value)
  | .help, value => .error (.ignoredValue .help value)

def Taken.finish (taken : Taken) : Except Complaint Parsed :=
  match taken.bundle, taken.out with
  | some bundle, some out =>
    if taken.extras.isEmpty then .ok (.settings ⟨bundle, taken.protos, out, taken.target⟩)
    else .error (.unrecognized taken.extras)
  | bundle, out =>
    .error (.missing ((if bundle.isNone then ["descriptor_set"] else []) ++
      if out.isNone then ["--out"] else []))

def Taken.addExtra (taken : Taken) (text : String) : Taken :=
  { taken with extras := taken.extras ++ [text] }

/-- Takes the arguments from left to right. The first plain one is the bundle, together with two
dashes beside it. -/
def take : List Argument → Taken → Except Complaint Parsed
  | [], taken => taken.finish
  | .plain text :: .dashes :: rest, taken =>
    if taken.bundle.isNone then take rest { taken with bundle := some text }
    else take rest ((taken.addExtra text).addExtra "--")
  | .plain text :: rest, taken =>
    if taken.bundle.isNone then take rest { taken with bundle := some text }
    else take rest (taken.addExtra text)
  | .dashes :: .plain text :: rest, taken =>
    if taken.bundle.isNone then take rest { taken with bundle := some text }
    else take rest ((taken.addExtra "--").addExtra text)
  | .dashes :: rest, taken => take rest (taken.addExtra "--")
  | .unknown text :: rest, taken => take rest (taken.addExtra text)
  | .flag .help none :: _, _ => .ok .help
  | .flag flag (some value) :: rest, taken => do take rest (← taken.set flag value)
  | .flag flag none :: .plain value :: rest, taken => do take rest (← taken.set flag value)
  | .flag flag none :: _, _ => .error (.missingValue flag)

def parse (arguments : List String) : Except Complaint Parsed := do
  take (← classifyAll arguments) {}

-- ---------------------------------------------------------------------------
-- Output
-- ---------------------------------------------------------------------------

def usage : String :=
  "usage: generate.py [-h] [--proto PROTOS] --out OUTPUT [--target \x7bts,js\x7d]\n" ++
  "                   descriptor_set\n"

def helpText : String :=
  usage ++
  "\n" ++
  "Generate Mongoose schema files from a descriptor set produced by protoc.\n" ++
  "\n" ++
  "positional arguments:\n" ++
  "  descriptor_set    Path to a serialized FileDescriptorSet (output of protoc\n" ++
  "                    --descriptor_set_out)\n" ++
  "\n" ++
  "options:\n" ++
  "  -h, --help        show this help message and exit\n" ++
  "  --proto PROTOS    Proto file to generate (relative to the descriptor).\n" ++
  "                    Repeat for multiple files. Defaults to all entries in the\n" ++
  "                    descriptor set.\n" ++
  "  --out OUTPUT      Directory to write the generated schemas to\n" ++
  "  --target \x7bts,js\x7d  Module flavour of the generated files\n"

def complaintText (complaint : Complaint) : String :=
  usage ++ "generate.py: error: " ++ complaint.message ++ "\n"

structure Result where
  status : Nat
  output : String := ""
  complaints : String := ""
  deriving Repr, DecidableEq

def perform {m : Type → Type} [Monad m] (storage : Bundle.Storage m) (arguments : List String) :
    m Result :=
  match parse arguments with
  | .error complaint => return { status := 2, complaints := complaintText complaint }
  | .ok .help => return { status := 0, output := helpText }
  | .ok (.settings settings) => do
    let paths ← storage.generate (Path.ofString settings.bundle) (settings.protos.map Value.text?)
      (settings.out.text?.map Path.ofString) settings.target.language
    return { status := 0, output := String.join (paths.map (·.text ++ "\n")) }

def run (fs : FileSystem) (arguments : List String) :
    Except Bundle.Failure Result × FileSystem :=
  perform Bundle.inFileSystem arguments fs

end SchemaGen.CommandLine
